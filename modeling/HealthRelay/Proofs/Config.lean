import HealthRelay.Config
import HealthRelay.Proofs.Except

/-!
# Checked configurations

The interval of a configuration has passed its check: it is not zero, and it is a day at most.
-/

namespace HealthRelay.Config

theorem checkInterval_eq_ok {d : Duration} :
    checkInterval d = .ok () ↔ 0 < d.nanos ∧ d.nanos ≤ maxReportingInterval.nanos := by
  unfold checkInterval
  by_cases hzero : d.nanos = 0
  · simp [hzero]
  by_cases hlong : maxReportingInterval < d
  · have hnanos : maxReportingInterval.nanos < d.nanos := hlong
    simp only [hzero, hlong, ↓reduceIte, reduceCtorEq, false_iff]
    omega
  · have hnanos : ¬ maxReportingInterval.nanos < d.nanos := hlong
    simp only [hzero, hlong, ↓reduceIte, true_iff]
    omega

theorem checkInterval_default : checkInterval defaultInterval = .ok () :=
  checkInterval_eq_ok.mpr (by decide)

/-- Settings that mean a configuration mean one whose interval has passed its check. -/
theorem ofSettings?_checked {s : Settings} {c : Config} (h : ofSettings? s = .ok c) :
    checkInterval c.reportingInterval = .ok () := by
  unfold ofSettings? at h
  obtain ⟨interval, -, h⟩ := bind_eq_ok h
  obtain ⟨localAddr, -, h⟩ := bind_eq_ok h
  obtain ⟨externalAddr, -, h⟩ := bind_eq_ok h
  obtain ⟨managementAddr, -, h⟩ := bind_eq_ok h
  obtain ⟨_, hchecked, h⟩ := bind_eq_ok h
  cases h
  exact hchecked

end HealthRelay.Config
