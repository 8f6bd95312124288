import Mathlib

/-!
# Sharing a secret by polynomials

Each element of a secret is the constant coefficient of a polynomial, and a share holds the values
of the polynomials at a point of its own. `combine_deal`: shares at as many points as there are
coefficients give the secret back.
-/

namespace CryptoVaultHub.PolynomialSharing

open Polynomial List

variable {F : Type} [Field F]

/-- The value at a point, by Horner's rule; the constant coefficient is the first. -/
def horner (coefficients : List F) (point : F) : F :=
  coefficients.foldr (fun coefficient value => coefficient + point * value) 0

@[simp] theorem horner_zero (coefficients : List F) :
    horner coefficients 0 = coefficients.headD 0 := by
  cases coefficients with
  | nil => rfl
  | cons constant rest => simp [horner]

/-- The polynomial of a list of coefficients. -/
noncomputable def toPolynomial (coefficients : List F) : F[X] :=
  coefficients.foldr (fun coefficient rest => C coefficient + X * rest) 0

theorem eval_toPolynomial (coefficients : List F) (point : F) :
    (toPolynomial coefficients).eval point = horner coefficients point := by
  induction coefficients with
  | nil => exact eval_zero
  | cons constant rest ih =>
    change (C constant + X * toPolynomial rest).eval point = constant + point * horner rest point
    rw [eval_add, eval_C, eval_mul, eval_X, ih]

theorem degree_toPolynomial (coefficients : List F) :
    (toPolynomial coefficients).degree < coefficients.length := by
  induction coefficients with
  | nil => simp [toPolynomial]
  | cons constant rest ih =>
    change (C constant + X * toPolynomial rest).degree < _
    rw [Polynomial.degree_lt_iff_coeff_zero] at ih ⊢
    intro position high
    rw [length_cons] at high
    obtain ⟨before, rfl⟩ : ∃ before, position = before + 1 := ⟨position - 1, by omega⟩
    rw [coeff_add, coeff_X_mul, coeff_C_succ, zero_add]
    exact ih before (by omega)

variable [DecidableEq F]

/-- The weight of a node at a point, after Lagrange. -/
def weight (nodes : List F) (node point : F) : F :=
  ((nodes.filter (· ≠ node)).map fun other => (point - other) / (node - other)).prod

/-- The value at a point of the polynomial of least degree through the values at the nodes. -/
def interpolate (values : List (F × F)) (point : F) : F :=
  (values.map fun entry => entry.2 * weight (values.map Prod.fst) entry.1 point).sum

/-- The value of each polynomial at one point. -/
structure Share (F : Type) where
  point : F
  values : List F
deriving DecidableEq

def deal (polynomials : List (List F)) (point : F) : Share F :=
  { point := point, values := polynomials.map fun coefficients => horner coefficients point }

/-- The shares but those at the point of an earlier one. -/
def distinct : List (Share F) → List (Share F)
  | [] => []
  | share :: rest => share :: (distinct rest).filter fun other => other.point ≠ share.point

/-- The longest shares tell how many elements the secret has. -/
def width (shares : List (Share F)) : Nat :=
  (shares.map fun share => share.values.length).foldr max 0

/-- The values at zero. -/
def combine (shares : List (Share F)) : List F :=
  (List.range (width (distinct shares))).map fun column =>
    interpolate ((distinct shares).map fun share => (share.point, share.values.getD column 0)) 0

/-! ## Interpolation -/

/-- A weight is the value of a polynomial of the basis. -/
theorem weight_eq {nodes : List F} (nodup : nodes.Nodup) (node point : F) :
    weight nodes node point = (Lagrange.basis nodes.toFinset id node).eval point := by
  have others : (nodes.filter (· ≠ node)).toFinset = nodes.toFinset.erase node := by
    ext other
    simp [and_comm]
  rw [weight, Lagrange.basis, eval_prod, ← others, prod_toFinset _ (nodup.filter _)]
  refine congrArg List.prod (map_congr_left fun other _ => ?_)
  simp [Lagrange.basisDivisor, div_eq_inv_mul]

/-- Values at as many nodes as a polynomial has coefficients determine it. -/
theorem interpolate_horner {coefficients nodes : List F} (nodup : nodes.Nodup)
    (enough : coefficients.length ≤ nodes.length) (point : F) :
    interpolate (nodes.map fun node => (node, horner coefficients node)) point =
      horner coefficients point := by
  have low : (toPolynomial coefficients).degree < nodes.toFinset.card := by
    rw [toFinset_card_of_nodup nodup]
    exact (degree_toPolynomial coefficients).trans_le (by exact_mod_cast enough)
  have firsts : (nodes.map fun node => (node, horner coefficients node)).map Prod.fst = nodes := by
    simp [Function.comp_def]
  calc interpolate (nodes.map fun node => (node, horner coefficients node)) point
      = (nodes.map fun node => horner coefficients node * weight nodes node point).sum := by
        rw [interpolate, firsts, map_map]
        rfl
    _ = ∑ node ∈ nodes.toFinset, horner coefficients node * weight nodes node point :=
        (sum_toFinset _ nodup).symm
    _ = (Lagrange.interpolate nodes.toFinset id fun node =>
          (toPolynomial coefficients).eval (id node)).eval point := by
        rw [Lagrange.interpolate_apply, eval_finsetSum]
        refine Finset.sum_congr rfl fun node _ => ?_
        rw [eval_mul, eval_C, ← weight_eq nodup, id, eval_toPolynomial]
    _ = horner coefficients point := by
        rw [← Lagrange.eq_interpolate Function.injective_id.injOn low, eval_toPolynomial]

theorem interpolate_perm {left right : List (F × F)} (perm : left.Perm right) (point : F) :
    interpolate left point = interpolate right point := by
  have weights : ∀ node, weight (left.map Prod.fst) node point =
      weight (right.map Prod.fst) node point :=
    fun node => (((perm.map Prod.fst).filter _).map _).prod_eq
  simp only [interpolate, weights]
  exact (perm.map _).sum_eq

/-! ## Shares -/

omit [Field F] in
theorem distinct_of_nodup {shares : List (Share F)} (nodup : (shares.map Share.point).Nodup) :
    distinct shares = shares := by
  induction shares with
  | nil => rfl
  | cons share rest ih =>
    rw [map_cons, nodup_cons] at nodup
    rw [distinct, ih nodup.2]
    refine congrArg (share :: ·) (filter_eq_self.mpr fun other member => ?_)
    refine decide_eq_true fun same => nodup.1 ?_
    exact mem_map.mpr ⟨other, member, same⟩

omit [DecidableEq F] in
theorem width_deal (polynomials : List (List F)) {points : List F} (nonempty : points ≠ []) :
    width (points.map (deal polynomials)) = polynomials.length := by
  induction points with
  | nil => exact absurd rfl nonempty
  | cons point rest ih =>
    have step : width ((point :: rest).map (deal polynomials)) =
        max polynomials.length (width (rest.map (deal polynomials))) := by
      simp [width, deal]
    rw [step]
    by_cases last : rest = []
    · subst last
      simp [width]
    · rw [ih last, max_self]

omit [Field F] [DecidableEq F] in
theorem width_perm {left right : List (Share F)} (perm : left.Perm right) :
    width left = width right :=
  (perm.map _).foldr_eq 0

/-- The order of the shares does not matter. -/
theorem combine_perm {left right : List (Share F)} (perm : left.Perm right)
    (nodup : (left.map Share.point).Nodup) : combine left = combine right := by
  have other : (right.map Share.point).Nodup := (perm.map Share.point).nodup_iff.mp nodup
  rw [combine, combine, distinct_of_nodup nodup, distinct_of_nodup other, width_perm perm]
  exact map_congr_left fun column _ => interpolate_perm (perm.map _) 0

/-- Shares at enough points give the constant coefficients back. -/
theorem combine_deal {polynomials : List (List F)} {points : List F} (nodup : points.Nodup)
    (nonempty : points ≠ [])
    (enough : ∀ coefficients ∈ polynomials, coefficients.length ≤ points.length) :
    combine (points.map (deal polynomials)) =
      polynomials.map fun coefficients => coefficients.headD 0 := by
  have own : (points.map (deal polynomials)).map Share.point = points := by
    simp [Function.comp_def, deal]
  rw [combine, distinct_of_nodup (own.symm ▸ nodup), width_deal polynomials nonempty]
  refine ext_getElem (by simp) fun column inside _ => ?_
  have bounded : column < polynomials.length := by simpa using inside
  have values : (points.map (deal polynomials)).map (fun share =>
      (share.point, share.values.getD column 0)) =
        points.map fun point => (point, horner polynomials[column] point) := by
    rw [map_map]
    refine map_congr_left fun point _ => ?_
    simp [deal, bounded]
  simp only [getElem_map, getElem_range]
  rw [values, interpolate_horner nodup (enough _ (getElem_mem bounded)), horner_zero]

end CryptoVaultHub.PolynomialSharing
