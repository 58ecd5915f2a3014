import GameClub.Common.HalfUp

/-! # Play time in parts

A duration that is charged in parts costs about what it costs at once. The charge for a product `n`
of rate and seconds is off by less than half a unit, `excess n / 3600`, and at the product
`misrounded` by a little more; of the parts of a safe product only one can be that one.

* `excess_bounds`, `excess_sum_le`, `le_excess_sum`: one charge, and the sum of many.
* `charged_hours`: whole hours are charged exactly.
* `split_bill`: the charges for the parts against the charge for the whole, and monotonicity. -/

namespace GameClub.Common

open GameClub.Lib.Binary64 Money

/-! ### The excess of a charge -/

/-- What is charged too much for the product `n`, in 3600ths of a unit. -/
def excess (n : ℤ) : ℤ := 3600 * charged n - n

/-- **One charge is off by half a unit at most**, `misrounded` apart. -/
theorem excess_bounds {n : ℤ} (h0 : 0 ≤ n) (h1 : n ≤ maxSafeInteger) :
    -1800 < excess n ∧ excess n ≤ 1800 + if n = misrounded then 1 else 0 := by
  unfold excess
  by_cases hne : n = misrounded
  · rw [hne, charged_misrounded, if_pos rfl]
    unfold misrounded
    omega
  · rw [charged_eq h0 h1 hne, if_neg hne]
    omega

/-- The sum of the charges is the sum of the products and of what is charged too much. -/
theorem charged_sum (ns : List ℤ) :
    3600 * (ns.map charged).sum = ns.sum + (ns.map excess).sum := by
  induction ns with
  | nil => rfl
  | cons n ns ih =>
    simp only [List.map_cons, List.sum_cons]
    have hn : 3600 * charged n = n + excess n := by unfold excess; omega
    omega

/-- **The excess of many charges, from above**: no two parts of a safe product are `misrounded`. -/
theorem excess_sum_le {ns : List ℤ} (h0 : ∀ n ∈ ns, 0 ≤ n) (h1 : ns.sum ≤ maxSafeInteger) :
    0 ≤ ns.sum ∧
      (ns.map excess).sum ≤ 1800 * ns.length + if misrounded ≤ ns.sum then 1 else 0 := by
  induction ns with
  | nil => simp [misrounded]
  | cons n ns ih =>
    simp only [List.map_cons, List.sum_cons, List.length_cons] at h1 ⊢
    have hn : 0 ≤ n := h0 n (by simp)
    have hrest : 0 ≤ ns.sum := List.sum_nonneg fun m hm => h0 m (by simp [hm])
    obtain ⟨-, hsum⟩ := ih (fun m hm => h0 m (by simp [hm])) (by omega)
    obtain ⟨-, hone⟩ := excess_bounds hn (by omega)
    refine ⟨by omega, ?_⟩
    unfold misrounded maxSafeInteger at *
    push_cast
    split_ifs at hsum hone ⊢ <;> omega

/-- **And from below.** -/
theorem le_excess_sum {ns : List ℤ} (h0 : ∀ n ∈ ns, 0 ≤ n) (h1 : ns.sum ≤ maxSafeInteger) :
    -1799 * ns.length ≤ (ns.map excess).sum := by
  induction ns with
  | nil => simp
  | cons n ns ih =>
    simp only [List.map_cons, List.sum_cons, List.length_cons] at h1 ⊢
    have hn : 0 ≤ n := h0 n (by simp)
    have hrest : 0 ≤ ns.sum := List.sum_nonneg fun m hm => h0 m (by simp [hm])
    have hsum := ih (fun m hm => h0 m (by simp [hm])) (by omega)
    obtain ⟨hone, -⟩ := excess_bounds hn (by omega)
    push_cast
    omega

/-- **The charges for the parts of a product** and the charge for the product. -/
theorem charged_split {ns : List ℤ} (h0 : ∀ n ∈ ns, 0 ≤ n) (h1 : ns.sum ≤ maxSafeInteger) :
    |(ns.map charged).sum - charged ns.sum| ≤ (ns.length + 1) / 2 := by
  obtain ⟨hsum0, hupper⟩ := excess_sum_le h0 h1
  have hlower := le_excess_sum h0 h1
  have hparts := charged_sum ns
  obtain ⟨hone, hone'⟩ := excess_bounds hsum0 h1
  have hwhole : 3600 * charged ns.sum = ns.sum + excess ns.sum := by unfold excess; omega
  -- 3600 times the difference is the excess of the parts less that of the whole
  refine abs_le.mpr ⟨?_, ?_⟩ <;> split_ifs at hupper hone' <;> omega

/-! ### Whole hours -/

/-- **Whole hours are charged exactly.** -/
theorem charged_hours {m : ℤ} (h0 : 0 ≤ m) (h1 : 3600 * m ≤ maxSafeInteger) :
    charged (3600 * m) = m := by
  rw [charged_eq (by omega) h1 (by unfold misrounded; omega)]
  omega

/-! ### Accepted numbers -/

/-- An accepted rate and duration are natural numbers. -/
theorem forDuration_integers {r d : Number} {a : Money} (h : forDuration r d = .ok a) :
    ∃ ratePerHour seconds : ℤ, r = ratePerHour ∧ d = seconds := by
  have hcast : ∀ x : ℚ, ¬ (x.isInt = false ∨ x < 0) → ((x.num : ℤ) : ℚ) = x := fun x hx =>
    (Rat.den_eq_one_iff _).mp (by simpa [Rat.isInt] using (not_or.mp hx).1)
  unfold forDuration at h
  split_ifs at h with hr hd
  exact ⟨r.num, d.num, (hcast r hr).symm, (hcast d hd).symm⟩

/-- **The parts of a duration**: each is charged for its product with the rate. -/
theorem forDuration_parts {ratePerHour : ℤ} {durations : List Number} {charges : List Money}
    (h : List.Forall₂ (fun d a => forDuration ratePerHour d = .ok a) durations charges) :
    ∃ seconds : List ℤ, durations = seconds.map (Int.cast : ℤ → ℚ) ∧
      (∀ s ∈ seconds, 0 ≤ s) ∧
      charges.map Money.value = (seconds.map (ratePerHour * ·)).map charged := by
  induction h with
  | nil => exact ⟨[], rfl, by simp, rfl⟩
  | @cons d a durations charges hd hrest ih =>
    obtain ⟨seconds, rfl, hnonneg, hvalues⟩ := ih
    obtain ⟨-, s, -, rfl⟩ := forDuration_integers hd
    obtain ⟨-, hs, -, ha⟩ := forDuration_ok.mp hd
    refine ⟨s :: seconds, rfl, ?_, ?_⟩
    · simpa using ⟨hs, hnonneg⟩
    · rw [List.map_cons, hvalues, ha]
      rfl

/-- The charge grows with the rate. -/
theorem forDuration_mono_rate {r r' : ℤ} {d : ℤ} {a a' : Money} (hle : r ≤ r')
    (h : forDuration r d = .ok a) (h' : forDuration r' d = .ok a') : a.value ≤ a'.value := by
  obtain ⟨-, hd, -, ha⟩ := forDuration_ok.mp h
  obtain ⟨-, -, -, ha'⟩ := forDuration_ok.mp h'
  rw [ha, ha']
  exact charged_mono (mul_le_mul_of_nonneg_right hle hd)

/-- Parts of whole hours, each charged at the rate. -/
theorem forDuration_hours {ratePerHour : ℤ} {hours : List ℕ} (h0 : 0 ≤ ratePerHour)
    (h1 : 3600 * (ratePerHour * (hours.sum : ℤ)) ≤ maxSafeInteger) :
    ∃ charges : List Money,
      List.Forall₂ (fun (h : ℕ) a => forDuration ratePerHour (3600 * h : ℕ) = .ok a) hours charges ∧
        (charges.map Money.value).sum = ratePerHour * hours.sum := by
  induction hours with
  | nil => exact ⟨[], .nil, by simp⟩
  | cons h hours ih =>
    have hsplit : 3600 * (ratePerHour * ((h :: hours).sum : ℤ)) =
        3600 * (ratePerHour * h) + 3600 * (ratePerHour * (hours.sum : ℤ)) := by
      rw [List.sum_cons]
      push_cast
      ring
    rw [hsplit] at h1
    have hone : 0 ≤ ratePerHour * (h : ℤ) := mul_nonneg h0 (Int.natCast_nonneg h)
    have hrest : 0 ≤ ratePerHour * (hours.sum : ℤ) := mul_nonneg h0 (Int.natCast_nonneg _)
    obtain ⟨charges, hcharges, hsum⟩ := ih (by omega)
    have hprod : ratePerHour * ((3600 * h : ℕ) : ℤ) = 3600 * (ratePerHour * h) := by
      push_cast
      ring
    have hcharged : charged (3600 * (ratePerHour * h)) = ratePerHour * h :=
      charged_hours hone (by omega)
    have hsafe : |ratePerHour * (h : ℤ)| ≤ maxSafeInteger := abs_le.mpr ⟨by omega, by omega⟩
    have hok : forDuration ratePerHour ((3600 * h : ℕ) : ℤ) = .ok ⟨ratePerHour * h, hsafe⟩ :=
      forDuration_ok.mpr ⟨h0, Int.natCast_nonneg _, by rw [hprod]; omega,
        by rw [hprod, hcharged]⟩
    refine ⟨⟨ratePerHour * h, hsafe⟩ :: charges, .cons (by exact_mod_cast hok) hcharges, ?_⟩
    rw [List.map_cons, List.sum_cons, List.sum_cons, hsum]
    push_cast
    ring

/-! ### The bill -/

/-- **Splitting play time changes the bill by a bounded amount**: `k` parts by at most
`⌊(k + 1) / 2⌋` units. The charge grows with the duration and with the rate, and whole hours are
charged exactly, at once and in parts. -/
theorem split_bill (rate : Number) :
    (∀ (durations : List Number) (charges : List Money) (total : Money),
      List.Forall₂ (fun d a => forDuration rate d = .ok a) durations charges →
      forDuration rate durations.sum = .ok total →
        |(charges.map Money.value).sum - total.value| ≤ (durations.length + 1) / 2) ∧
    (∀ (d d' : Number) (a a' : Money), d ≤ d' → forDuration rate d = .ok a →
      forDuration rate d' = .ok a' → a.value ≤ a'.value) ∧
    (∀ (rate' d : Number) (a a' : Money), rate ≤ rate' → forDuration rate d = .ok a →
      forDuration rate' d = .ok a' → a.value ≤ a'.value) ∧
    (∀ (hours : List ℕ) (total : Money), forDuration rate (3600 * hours.sum : ℕ) = .ok total →
      (total.value : Number) = rate * hours.sum ∧ ∃ charges : List Money,
        List.Forall₂ (fun (h : ℕ) a => forDuration rate (3600 * h : ℕ) = .ok a) hours charges ∧
          (charges.map Money.value).sum = total.value) := by
  refine ⟨fun durations charges total hparts hwhole => ?_, fun d d' a a' hle h h' => ?_,
    fun rate' d a a' hle h h' => ?_, fun hours total h => ?_⟩
  · obtain ⟨ratePerHour, -, rfl, -⟩ := forDuration_integers hwhole
    obtain ⟨seconds, rfl, hnonneg, hvalues⟩ := forDuration_parts hparts
    rw [← Int.cast_list_sum] at hwhole
    obtain ⟨hrate, -, hsafe, htotal⟩ := forDuration_ok.mp hwhole
    have hprod : (seconds.map (ratePerHour * ·)).sum = ratePerHour * seconds.sum := by
      rw [List.sum_map_mul_left, List.map_id']
    have hparts0 : ∀ n ∈ seconds.map (ratePerHour * ·), 0 ≤ n := by
      intro n hn
      obtain ⟨s, hs, rfl⟩ := List.mem_map.mp hn
      exact mul_nonneg hrate (hnonneg s hs)
    have hsplit := charged_split hparts0 (by rw [hprod]; exact hsafe)
    rw [hprod, ← hvalues, ← htotal, List.length_map] at hsplit
    rw [List.length_map]
    exact hsplit
  · obtain ⟨ratePerHour, s, rfl, rfl⟩ := forDuration_integers h
    obtain ⟨-, s', -, rfl⟩ := forDuration_integers h'
    exact forDuration_mono (by exact_mod_cast hle) h h'
  · obtain ⟨ratePerHour, s, rfl, rfl⟩ := forDuration_integers h
    obtain ⟨ratePerHour', -, rfl, -⟩ := forDuration_integers h'
    exact forDuration_mono_rate (by exact_mod_cast hle) h h'
  · obtain ⟨ratePerHour, -, rfl, -⟩ := forDuration_integers h
    have hcast : forDuration ratePerHour ((3600 * hours.sum : ℕ) : ℤ) = .ok total := by
      exact_mod_cast h
    obtain ⟨hrate, -, hsafe, htotal⟩ := forDuration_ok.mp hcast
    have hprod : ratePerHour * ((3600 * hours.sum : ℕ) : ℤ) =
        3600 * (ratePerHour * (hours.sum : ℤ)) := by
      push_cast
      ring
    rw [hprod] at hsafe htotal
    rw [charged_hours (mul_nonneg hrate (Int.natCast_nonneg _)) hsafe] at htotal
    obtain ⟨charges, hcharges, hsum⟩ := forDuration_hours hrate hsafe
    refine ⟨?_, charges, hcharges, hsum.trans htotal.symm⟩
    rw [htotal, Int.cast_mul, Int.cast_natCast]

/-- Two seconds at 1800 an hour, charged one by one: half a unit each, rounded up. Two hours at this
rate, one by one. -/
theorem split_bill_seconds : ∃ a b c d : Money,
    forDuration (1800 : ℤ) (1 : ℤ) = .ok a ∧ forDuration (1800 : ℤ) (2 : ℤ) = .ok b ∧
    forDuration (3600 : ℤ) (1 : ℤ) = .ok c ∧ forDuration (1800 : ℤ) (7200 : ℤ) = .ok d ∧
    |([a, a].map Money.value).sum - b.value| ≤ (([1, 1] : List Number).length + 1) / 2 ∧
    a.value ≤ b.value ∧ a.value ≤ c.value ∧
    (d.value : Number) = ((1800 : ℤ) : ℚ) * (([1, 1] : List ℕ).sum : ℕ) := by
  have hcharge : ∀ {r s : ℤ} {a : Money}, 0 ≤ r → 0 ≤ s → r * s ≤ 10 ^ 9 →
      a.value = (r * s + 1800) / 3600 → forDuration r s = .ok a := by
    intro r s a hr hs hle ha
    refine forDuration_ok.mpr ⟨hr, hs, hle.trans (by decide), ?_⟩
    rw [ha, charged_eq (mul_nonneg hr hs) (hle.trans (by decide)) (by unfold misrounded; omega)]
  have hone : forDuration ((1800 : ℤ) : ℚ) ((1 : ℤ) : ℚ) = .ok ⟨1, by decide⟩ :=
    hcharge (by decide) (by decide) (by decide) rfl
  have htwo : forDuration ((1800 : ℤ) : ℚ) ((2 : ℤ) : ℚ) = .ok ⟨1, by decide⟩ :=
    hcharge (by decide) (by decide) (by decide) rfl
  have hdear : forDuration ((3600 : ℤ) : ℚ) ((1 : ℤ) : ℚ) = .ok ⟨1, by decide⟩ :=
    hcharge (by decide) (by decide) (by decide) rfl
  have hhours : forDuration ((1800 : ℤ) : ℚ) ((7200 : ℤ) : ℚ) = .ok ⟨3600, by decide⟩ :=
    hcharge (by decide) (by decide) (by decide) rfl
  obtain ⟨hsplit, hduration, hrate, hexact⟩ := split_bill ((1800 : ℤ) : ℚ)
  have hsum : ([((1 : ℤ) : ℚ), ((1 : ℤ) : ℚ)] : List Number).sum = ((2 : ℤ) : ℚ) := by norm_num
  refine ⟨_, _, _, _, hone, htwo, hdear, hhours, ?_,
    hduration _ _ _ _ (by norm_num) hone htwo, hrate _ _ _ _ (by norm_num) hone hdear, ?_⟩
  · exact hsplit _ _ _ (.cons hone (.cons hone .nil)) (hsum ▸ htwo)
  · exact (hexact [1, 1] _ (by exact_mod_cast hhours)).1

end GameClub.Common
