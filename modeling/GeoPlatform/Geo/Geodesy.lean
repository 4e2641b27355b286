import GeoPlatform.Geo.RoadGraph
import Mathlib.Analysis.InnerProductSpace.PiL2
import Mathlib.Analysis.Real.Pi.Bounds
import Mathlib.Geometry.Euclidean.Angle.Unoriented.TriangleInequality

/-! `haversine_m` in exact arithmetic. It is the earth's radius times the angle between two unit
vectors, so it has the triangle inequality that the search relies on. -/
namespace GeoPlatform.Geo
open Real InnerProductGeometry
attribute [local instance] atLeastTwo_two

noncomputable def radians (degrees : ℝ) : ℝ := degrees * (π / 180)

noncomputable def EARTH_RADIUS_M : ℝ := 6371008.8

noncomputable def haversineM (p q : Point ℝ) : ℝ :=
  let phi1 := radians p.2
  let phi2 := radians q.2
  let dPhi := phi2 - phi1
  let dLambda := radians (q.1 - p.1)
  let a := sin (dPhi / 2) ^ 2 + cos phi1 * cos phi2 * sin (dLambda / 2) ^ 2
  2 * EARTH_RADIUS_M * arcsin (min 1 (√a))

/-! ### The angle between two points -/

/-- The unit vector from the centre of the earth. -/
noncomputable def unitVector (p : Point ℝ) : EuclideanSpace ℝ (Fin 3) :=
  !₂[cos (radians p.2) * cos (radians p.1), cos (radians p.2) * sin (radians p.1),
    sin (radians p.2)]

theorem inner_unitVector (p q : Point ℝ) : inner ℝ (unitVector p) (unitVector q) =
    cos (radians p.2) * cos (radians q.2) * cos (radians (q.1 - p.1)) +
      sin (radians p.2) * sin (radians q.2) := by
  have hsub : radians (q.1 - p.1) = radians q.1 - radians p.1 := sub_mul ..
  rw [hsub, cos_sub]
  simp only [unitVector, PiLp.inner_apply, Fin.sum_univ_three, RCLike.inner_apply, conj_trivial]
  simp
  ring

theorem norm_unitVector (p : Point ℝ) : ‖unitVector p‖ = 1 := by
  have hinner := inner_unitVector p p
  rw [real_inner_self_eq_norm_sq, sub_self] at hinner
  have hone : ‖unitVector p‖ ^ 2 = 1 := by
    rw [hinner, show radians 0 = 0 from zero_mul _, cos_zero]
    nlinarith [sin_sq_add_cos_sq (radians p.2)]
  nlinarith [norm_nonneg (unitVector p)]

/-- The half chord of an angle between unit vectors is the sine of its half. -/
theorem haversineM_eq (p q : Point ℝ) :
    haversineM p q = EARTH_RADIUS_M * angle (unitVector p) (unitVector q) := by
  set θ := angle (unitVector p) (unitVector q) with hθ
  have hθ0 : 0 ≤ θ := angle_nonneg ..
  have hθπ : θ ≤ π := angle_le_pi ..
  have hcos : cos θ = inner ℝ (unitVector p) (unitVector q) := by
    rw [hθ, cos_angle, norm_unitVector, norm_unitVector, mul_one, div_one]
  have hsin : 0 ≤ sin (θ / 2) := sin_nonneg_of_nonneg_of_le_pi (by linarith) (by linarith)
  have ha : sin ((radians q.2 - radians p.2) / 2) ^ 2 + cos (radians p.2) * cos (radians q.2) *
      sin (radians (q.1 - p.1) / 2) ^ 2 = sin (θ / 2) ^ 2 := by
    rw [sin_sq_eq_half_sub, sin_sq_eq_half_sub, sin_sq_eq_half_sub, mul_div_cancel₀ _ two_ne_zero,
      mul_div_cancel₀ _ two_ne_zero, mul_div_cancel₀ _ two_ne_zero, hcos, inner_unitVector, cos_sub]
    ring
  unfold haversineM
  simp only
  rw [ha, sqrt_sq hsin, min_eq_right (sin_le_one _), arcsin_sin (by linarith) (by linarith)]
  ring

theorem isPseudoMetric_haversineM : IsPseudoMetric haversineM := by
  have hradius : 0 < EARTH_RADIUS_M := by
    norm_num [EARTH_RADIUS_M]
  constructor
  · intro p
    have hne : unitVector p ≠ 0 := by
      intro h0
      have hnorm := norm_unitVector p
      rw [h0, norm_zero] at hnorm
      exact zero_ne_one hnorm
    rw [haversineM_eq, angle_self hne, mul_zero]
  · intro p q
    rw [haversineM_eq, haversineM_eq, angle_comm]
  · intro p q r
    rw [haversineM_eq, haversineM_eq, haversineM_eq, ← mul_add]
    exact mul_le_mul_of_nonneg_left (angle_le_angle_add_angle ..) hradius.le

/-! ### Along a meridian -/

theorem haversineM_meridian (x : ℝ) {y y' : ℝ} (h : |y' - y| ≤ 180) :
    haversineM (x, y) (x, y') = EARTH_RADIUS_M * radians |y' - y| := by
  have hpi := pi_pos
  set t := radians (y' - y) / 2 with ht
  have habs : |t| = radians |y' - y| / 2 := by
    rw [ht, abs_div, abs_two, radians, radians, abs_mul, abs_of_pos (by positivity : 0 < π / 180)]
  have hle : radians |y' - y| ≤ π := by
    have hscaled := mul_le_mul_of_nonneg_right h (by positivity : 0 ≤ π / 180)
    unfold radians
    linarith
  have hhalf : (radians y' - radians y) / 2 = t := by
    rw [ht]
    unfold radians
    ring
  have hsin : |sin t| = sin |t| := abs_sin_eq_sin_abs_of_abs_le_pi (by linarith)
  have hflat : sin (radians (x - x) / 2) = 0 := by
    simp [radians]
  unfold haversineM
  simp only
  rw [hhalf, hflat, zero_pow two_ne_zero, mul_zero, add_zero, sqrt_sq_eq_abs,
    min_eq_right (abs_sin_le_one t), hsin, arcsin_sin (by linarith [abs_nonneg t]) (by linarith),
    habs]
  ring

theorem roundHalfEven_natCast (n : ℕ) : roundHalfEven (n : ℝ) = n := by
  simp [roundHalfEven]

noncomputable def southEnd : Point ℝ := (0, 1 / 200)

noncomputable def northEnd : Point ℝ := (0, 1 / 100)

noncomputable def meridianStreet : RoadSegment ℝ :=
  { coordinates := [southEnd, northEnd], direction := .forward }

def drivingOnEarth : TravelProfile ℝ where
  mode := "driving"
  excludedClasses := ["footway"]
  respectsOneway := true
  defaultSpeedKmh := 30
  maxSpeedKmh := 110
  maxSpeed_pos := by norm_num

noncomputable def meridianGraph : RoadGraph ℝ :=
  RoadGraph.build haversineM [meridianStreet] [drivingOnEarth]

theorem nodeKey_ends : nodeKey northEnd ≠ nodeKey southEnd := by
  have hnorth : northEnd.2 * COORDINATE_PRECISION = (10000 : ℕ) := by
    norm_num [northEnd, COORDINATE_PRECISION]
  have hsouth : southEnd.2 * COORDINATE_PRECISION = (5000 : ℕ) := by
    norm_num [southEnd, COORDINATE_PRECISION]
  intro h
  have hlat := congrArg Prod.snd h
  simp only [nodeKey, hnorth, hsouth, roundHalfEven_natCast] at hlat
  omega

theorem meridianGraph_eq : meridianGraph.nodes = [southEnd, northEnd] ∧
    meridianGraph.links = [⟨0, 1, haversineM southEnd northEnd, .forward, none, none⟩] := by
  simp [meridianGraph, meridianStreet, RoadGraph.build, addSegment, addVertex, nodeFor,
    Building.addNode, Building.addLink, nodeKey_ends]

theorem haversineM_street : 0 < haversineM southEnd northEnd := by
  unfold southEnd northEnd
  rw [haversineM_meridian]
  · norm_num [EARTH_RADIUS_M, radians, pi_pos]
  · norm_num

end GeoPlatform.Geo
