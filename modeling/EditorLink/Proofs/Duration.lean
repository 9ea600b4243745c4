import EditorLink.Duration
import Mathlib.Order.Bounds.Basic

/-! Spans of time by their length, and what is left of a span that is kept as a count of whole
milliseconds: the longest span that can be counted so and is not longer. -/
namespace EditorLink.Duration

variable {d e : Duration} {ms : UInt64}

theorem totalNanos_injective : Function.Injective totalNanos := by
  rintro ⟨seconds,nanos,small⟩ ⟨others,rest,less⟩ same
  simp only [totalNanos] at same
  have count : seconds.toNat = others.toNat := by omega
  cases UInt64.toNat_inj.mp count
  have left : nanos = rest := by omega
  cases left
  rfl

/-- The longer span is the greater one. -/
instance : PartialOrder Duration := PartialOrder.lift totalNanos totalNanos_injective

theorem le_iff : d ≤ e ↔ d.totalNanos ≤ e.totalNanos := Iff.rfl

instance : DecidableLE Duration := fun _ _ => decidable_of_iff _ le_iff.symm

/-- Spans are compared by their seconds first. -/
theorem le_iff_parts : d ≤ e ↔ d.seconds < e.seconds ∨ d.seconds = e.seconds ∧ d.nanos ≤ e.nanos := by
  have within := d.nanos_lt
  have bound := e.nanos_lt
  rw [le_iff,totalNanos,totalNanos,UInt64.lt_iff_toNat_lt,← UInt64.toNat_inj]
  omega

/-- Nothing of the span is shorter than a millisecond. -/
def Whole (d : Duration) : Prop := 1000000 ∣ d.nanos

/-- As many milliseconds as can be counted. -/
def longest : Duration := ofMillis (UInt64.ofNat greatestCount)

/-- What is left of the span in whole milliseconds. -/
def kept (d : Duration) : Duration := ofMillis d.toMillis

theorem totalNanos_lt (d : Duration) : d.totalNanos < 1 <<< 96 := by
  have seconds := d.seconds.toNat_lt
  have nanos := d.nanos_lt
  unfold totalNanos
  omega

/-- Counts of milliseconds are compared with spans either way round. -/
theorem ofMillis_le : ofMillis ms ≤ d ↔ ms ≤ d.toMillis := by
  rw [le_iff,totalNanos_ofMillis,UInt64.le_iff_toNat_le,toNat_toMillis,Nat.le_min,
    Nat.le_div_iff_mul_le (by decide)]
  exact (and_iff_left (toNat_le_greatestCount ms)).symm

theorem whole_iff : d.Whole ↔ 1000000 ∣ d.totalNanos := by
  unfold Whole totalNanos
  omega

/-- The spans that a count of milliseconds gives. -/
theorem exists_ofMillis : (∃ ms, ofMillis ms = e) ↔ e.Whole ∧ e ≤ longest := by
  constructor
  · rintro ⟨ms,rfl⟩
    refine ⟨whole_iff.mpr ?_,ofMillis_le.mpr ?_⟩
    · rw [totalNanos_ofMillis]
      exact Nat.dvd_mul_left _ _
    · rw [longest,toMillis_ofMillis]
      exact UInt64.le_iff_toNat_le.mpr (toNat_le_greatestCount ms)
  · rintro ⟨whole,within⟩
    obtain ⟨count,total⟩ := whole_iff.mp whole
    have known : count ≤ greatestCount := by
      rw [le_iff,longest,totalNanos_ofMillis,total] at within
      exact Nat.le_of_mul_le_mul_left (Nat.le_trans within (Nat.le_of_eq (Nat.mul_comm _ _))) (by decide)
    refine ⟨UInt64.ofNat count,totalNanos_injective ?_⟩
    rw [totalNanos_ofMillis,UInt64.toNat_ofNat_of_lt' (Nat.lt_succ_of_le known),total,Nat.mul_comm]

theorem kept_isGreatest (d : Duration) : IsGreatest {e | e.Whole ∧ e ≤ d ∧ e ≤ longest} d.kept := by
  constructor
  · obtain ⟨whole,within⟩ := exists_ofMillis.mp ⟨d.toMillis,rfl⟩
    exact ⟨whole,ofMillis_le.mpr (UInt64.le_refl _),within⟩
  · rintro e ⟨whole,le,within⟩
    obtain ⟨ms,rfl⟩ := exists_ofMillis.mpr ⟨whole,within⟩
    rw [kept,ofMillis_le,toMillis_ofMillis]
    exact ofMillis_le.mp le

theorem kept_mono : Monotone kept := fun d e le =>
  (kept_isGreatest d).mono (kept_isGreatest e) fun _ ⟨whole,within,counted⟩ => ⟨whole,within.trans le,counted⟩

theorem toMillis_mono (le : d ≤ e) : d.toMillis ≤ e.toMillis :=
  ofMillis_le.mp ((kept_isGreatest d).1.2.1.trans le)

end EditorLink.Duration
